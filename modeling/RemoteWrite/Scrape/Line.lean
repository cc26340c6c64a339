import RemoteWrite.Binary64.Decimal
import RemoteWrite.Error
import RemoteWrite.Scrape.Format
import RemoteWrite.Series.MetricType
import RemoteWrite.Series.SymbolTable

/-!
# Lines of scrape text

A line is a sample or, if it starts with a hash, a comment; of the comments only those of help, type
and unit are read. A sample is a name, labels in braces if there are any, a value and perhaps a
timestamp; what follows is not looked at.
-/

namespace RemoteWrite.Scrape

/-- A sample as it is written, its name aside from its labels. -/
structure Sample where
  name : String
  labels : LabelList
  value : Binary64
  timestamp : Option Int64
  deriving DecidableEq, Inhabited

inductive Line where
  | sample (sample : Sample)
  | help (family text : String)
  | type (family : String) (type : MetricType)
  | unit (family : String) (unit : Option String)
  | remark
  deriving DecidableEq, Inhabited

def isNameChar (c : Char) : Bool := c.isAlphanum || c == '_' || c == ':'

def isLabelNameChar (c : Char) : Bool := c.isAlphanum || c == '_'

def isGap (c : Char) : Bool := c == ' ' || c == '\t'

def skipGap (cs : List Char) : List Char := cs.dropWhile isGap

def token (cs : List Char) : List Char := cs.takeWhile fun c => !Text.isBlank c

/-- What a backslash and a character stand for; both, if it is none that is escaped. -/
def escaped (c : Char) : List Char :=
  if c = 'n' then ['\n'] else if c = '\\' ∨ c = '"' then [c] else ['\\', c]

def unescape : List Char → List Char
  | '\\' :: c :: cs => escaped c ++ unescape cs
  | c :: cs => c :: unescape cs
  | [] => []

/-- Takes the given character off the line. -/
def expect (want : Char) : List Char → Except LineFault (List Char)
  | [] => .error (.expectedAtEnd want)
  | c :: cs => if c = want then .ok cs else .error (.expected want c)

/-- The text up to the closing quote, which is taken off too. -/
def readQuotedRest : List Char → Except LineFault (List Char × List Char)
  | '"' :: cs => .ok ([], cs)
  | '\\' :: c :: cs =>
    match readQuotedRest cs with
    | .ok (text, rest) => .ok (escaped c ++ text, rest)
    | .error e => .error e
  | ['\\'] => .error .unterminatedValue
  | c :: cs =>
    match readQuotedRest cs with
    | .ok (text, rest) => .ok (c :: text, rest)
    | .error e => .error e
  | [] => .error .unterminatedValue

def readQuoted (cs : List Char) : Except LineFault (List Char × List Char) := do
  readQuotedRest (← expect '"' cs)

/-- One label: a name, an equals sign and a quoted value, with gaps around them. -/
def readLabel (cs : List Char) : Except LineFault ((String × String) × List Char) := do
  let name := cs.takeWhile isLabelNameChar
  if name.isEmpty then throw .noLabelName
  let cs ← expect '=' (skipGap (cs.dropWhile isLabelNameChar))
  let (value, cs) ← readQuoted (skipGap cs)
  return ((String.ofList name, String.ofList value), skipGap cs)

/-- Labels up to the closing brace, which may follow a comma. A label takes a character, so `room`
of them can be no more than the characters that are left. -/
def readLabels : (room : Nat) → List Char → Except LineFault (LabelList × List Char)
  | 0, _ => .error .noLabelName
  | room + 1, cs =>
    match skipGap cs with
    | '}' :: cs => .ok ([], cs)
    | cs => do
      let (label, cs) ← readLabel cs
      match cs with
      | ',' :: cs =>
        let (labels, cs) ← readLabels room cs
        return (label :: labels, cs)
      | '}' :: cs => return ([label], cs)
      | _ => throw .labelSeparator

/-- A value is a double; the words for infinity and for no number are read in any case. -/
def readValue (token : List Char) : Except LineFault Binary64 :=
  match Binary64.read? token with
  | some value => .ok value
  | none => .error (.value (String.ofList token))

/-- Timestamps are milliseconds in the classic format and seconds in OpenMetrics. -/
def readTimestamp? (format : ScrapeFormat) (token : List Char) : Option Int64 :=
  match format with
  | .text => Text.readInt64? token
  | .openMetrics =>
    match Binary64.read? token with
    | some seconds => if seconds.isFinite then some (seconds.mulNat 1000).roundInt64 else none
    | none => none

/-- The timestamp, if the line goes on with one. -/
def readTimestamp (format : ScrapeFormat) (token : List Char) :
    Except LineFault (Option Int64) :=
  if token.isEmpty then .ok none
  else
    match readTimestamp? format token with
    | some t => .ok (some t)
    | none => .error (.timestamp (String.ofList token))

def readSample (format : ScrapeFormat) (cs : List Char) : Except LineFault Sample := do
  let name := cs.takeWhile isNameChar
  if name.isEmpty then throw .noName
  let (labels, cs) ← match cs.dropWhile isNameChar with
    | '{' :: cs => readLabels (cs.length + 1) cs
    | cs => pure ([], cs)
  let cs := skipGap cs
  let value ← readValue (token cs)
  let cs := skipGap (cs.drop (token cs).length)
  let timestamp ← readTimestamp format ((token cs).takeWhile (· ≠ '#'))
  return ⟨String.ofList name, labels, value, timestamp⟩

/-- A comment, its hash taken off. -/
def readComment (cs : List Char) : Except LineFault Line := do
  let cs := skipGap cs
  let keyword := String.ofList (token cs)
  if keyword ∉ ["HELP", "TYPE", "UNIT"] then return .remark
  let cs := skipGap (cs.drop (token cs).length)
  let name := cs.takeWhile isNameChar
  if name.isEmpty then throw (.commentName keyword)
  let family := String.ofList name
  let rest := Text.trimEnd (skipGap (cs.dropWhile isNameChar))
  if keyword = "HELP" then return .help family (String.ofList (unescape rest))
  else if keyword = "TYPE" then return .type family (.ofWord (String.ofList rest))
  else return .unit family (if rest.isEmpty then none else some (String.ofList rest))

/-- A line without blanks around it. -/
def readLine (format : ScrapeFormat) : List Char → Except LineFault Line
  | '#' :: cs => readComment cs
  | cs => (readSample format cs).map .sample

end RemoteWrite.Scrape
