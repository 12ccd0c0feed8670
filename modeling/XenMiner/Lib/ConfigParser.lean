import XenMiner.Lib.PyText

/-!
# Python's `configparser`

`parse` is what a `ConfigParser()` with its defaults makes of the lines of a file: full-line comments
(`#`, `;`), delimiters `=` and `:`, continuation lines by their indentation, names of options in lower
case, and duplicates as errors.  It goes in two passes: `items` says what each line is, and the
options get their values, with the continuation lines, from the items behind them.  `get` looks an
option up, with the defaults, and expands the references `%(name)s` in its value.

An exception is `none`, whatever it is.
-/

namespace ConfigParser

open PyText

/-! ### One line -/

/-- A full-line comment. -/
def isComment (line : Text) : Bool :=
  match strip line with
  | c :: _ => c = '#' || c = ';'
  | [] => false

/-- Where the text of a line starts. -/
def indent (line : Text) : ℕ := (line.takeWhile PyStr.isSpace).length

/-- The match of `\[(.+)\]` at the start of a stripped line: up to its last bracket. -/
def matchHeader : Text → Option Text
  | '[' :: rest =>
    match rest.reverse.dropWhile (· ≠ ']') with
    | ']' :: name => if name = [] then none else some name.reverse
    | _ => none
  | _ => none

def isDelimiter (c : Char) : Bool := c = '=' || c = ':'

/-- Name and value of an option line. -/
def matchOption (value : Text) : Option (Text × Text) :=
  match value.dropWhile (! isDelimiter ·) with
  | [] => none
  | _ :: rest => some (lower (rstrip (value.takeWhile (! isDelimiter ·))), strip rest)

/-- What a line is. -/
inductive Item
  | comment
  | blank
  | header (name : Text)
  | option (sect key value : Text)
  /-- A line that continues the value before it. -/
  | continuation (value : Text)
  /-- A line the parser raises for. -/
  | bad
  deriving DecidableEq, Repr

/-- What the parser carries from line to line: the section it is in, whether that has had an option,
and the indentation of the last header or option. -/
structure Place where
  sect : Option Text := none
  inOption : Bool := false
  indentLevel : ℕ := 0
  deriving DecidableEq, Repr

/-- The line continues a value. -/
def Place.continues (p : Place) (line : Text) : Bool :=
  p.sect.isSome && p.inOption && decide (p.indentLevel < indent line)

/-- A header or an option. -/
def readEntry (p : Place) (line : Text) : Item × Place :=
  let value := strip line
  let level := indent line
  match matchHeader value with
  | some name => (.header name, { sect := some name, inOption := false, indentLevel := level })
  | none =>
    match p.sect, matchOption value with
    | some sect, some (key, optval) =>
      if key = [] then (.bad, { sect := some sect, inOption := false, indentLevel := level })
      else (.option sect key optval, { sect := some sect, inOption := true, indentLevel := level })
    | _, _ => (.bad, { p with indentLevel := level })

/-- One line of `_read`. -/
def readLine (p : Place) (line : Text) : Item × Place :=
  if isComment line then (.comment, p)
  else if strip line = [] then (.blank, p)
  else if p.continues line then (.continuation (strip line), p)
  else readEntry p line

/-! ### The lines of a file -/

/-- What the lines are. -/
def items : Place → List Text → List Item
  | _, [] => []
  | p, line :: lines => (readLine p line).1 :: items (readLine p line).2 lines

/-- Where the parser is behind the lines. -/
def placeAfter : Place → List Text → Place
  | p, [] => p
  | p, line :: lines => placeAfter (readLine p line).2 lines

/-- The lines that go on with a value: blank lines count, comments do not. -/
def moreLines : List Item → List Text
  | .blank :: rest => [] :: moreLines rest
  | .comment :: rest => moreLines rest
  | .continuation value :: rest => value :: moreLines rest
  | _ => []

/-- An option with its section and its raw value. -/
structure Entry where
  sect : Text
  key : Text
  value : Text
  deriving DecidableEq, Repr

/-- The options, in the order of the file. -/
def entries : List Item → List Entry
  | [] => []
  | .option sect key value :: rest =>
    { sect := sect, key := key,
      value := rstrip (List.intercalate ['\n'] (value :: moreLines rest)) } :: entries rest
  | _ :: rest => entries rest

/-- The sections, in the order of the file. -/
def headers : List Item → List Text
  | [] => []
  | .header name :: rest => name :: headers rest
  | _ :: rest => headers rest

def defaultSection : Text := "DEFAULT".toList

/-- What a parser has read. -/
structure Config where
  sections : List Text
  options : List Entry
  deriving DecidableEq, Repr

/-- A section or an option is not declared twice, and no line is bad. -/
def Valid (its : List Item) : Prop :=
  .bad ∉ its ∧ ((headers its).filter (· ≠ defaultSection)).Nodup ∧
    ((entries its).map fun e => (e.sect, e.key)).Nodup

instance (its : List Item) : Decidable (Valid its) := inferInstanceAs (Decidable (_ ∧ _ ∧ _))

/-- `read` of a file with these lines. -/
def parse (lines : List Text) : Option Config :=
  let its := items {} lines
  if Valid its then some { sections := headers its, options := entries its } else none

/-! ### Looking options up -/

/-- `section in parser`. -/
def Config.hasSection (c : Config) (sect : Text) : Bool := sect ∈ defaultSection :: c.sections

/-- The raw value of an option: the section's, or the default. -/
def Config.raw (c : Config) (sect key : Text) : Option Text :=
  ((c.options.find? fun e => e.sect = sect ∧ e.key = key).or
    (c.options.find? fun e => e.sect = defaultSection ∧ e.key = key)).map Entry.value

/-- A piece of a value. -/
inductive Token
  | lit (c : Char)
  | ref (name : Text)
  deriving DecidableEq, Repr

/-- Where the scan of a value is. -/
inductive Scan
  | text
  /-- After `%`. -/
  | percent
  /-- In the name of a reference. -/
  | name (sofar : Text)
  /-- After the closing parenthesis. -/
  | close (name : Text)

/-- The pieces of a value; `%%` stands for `%`. -/
def tokens : Scan → Text → Option (List Token)
  | .text, [] => some []
  | .text, c :: cs =>
    if c = '%' then tokens .percent cs else (tokens .text cs).map (.lit c :: ·)
  | .percent, c :: cs =>
    if c = '%' then (tokens .text cs).map (.lit '%' :: ·)
    else if c = '(' then tokens (.name []) cs
    else none
  | .name sofar, c :: cs =>
    if c = ')' then if sofar = [] then none else tokens (.close sofar) cs
    else tokens (.name (sofar ++ [c])) cs
  | .close name, c :: cs =>
    if c = 's' then (tokens .text cs).map (.ref (lower name) :: ·) else none
  | _, [] => none

/-- What a piece stands for; a value found with references of its own is expanded in turn. -/
def Token.expand (look deeper : Text → Option Text) : Token → Option Text
  | .lit c => some [c]
  | .ref name => (look name).bind fun v => if '%' ∈ v then deeper v else some v

/-- `_interpolate_some`, with the values `look` finds and the depth that is left. -/
def interpolate (look : Text → Option Text) : ℕ → Text → Option Text
  | 0, _ => none
  | depth + 1, value =>
    (tokens .text value).bind fun toks =>
      (toks.mapM (Token.expand look (interpolate look depth))).map List.flatten

/-- `MAX_INTERPOLATION_DEPTH`. -/
def maxInterpolationDepth : ℕ := 10

/-- `parser.get(section, option, fallback=None)`: no exception, and the value if there is one. -/
def Config.get (c : Config) (sect key : Text) : Option (Option Text) :=
  match c.raw sect key with
  | none => some none
  | some value => (interpolate (c.raw sect) maxInterpolationDepth value).map some

end ConfigParser
