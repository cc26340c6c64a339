import RemoteWrite.Text.Blank

/-!
# Formats of scrape text

OpenMetrics text ends with a marker, the classic text format does not. Either way the text that is
served ends with one newline.
-/

namespace RemoteWrite

inductive ScrapeFormat where
  | text | openMetrics
  deriving DecidableEq, Inhabited

namespace ScrapeFormat

def contentType : ScrapeFormat → String
  | text => "text/plain; version=0.0.4; charset=utf-8"
  | openMetrics => "application/openmetrics-text; version=1.0.0; charset=utf-8"

def requiresEnd (f : ScrapeFormat) : Bool := f = openMetrics

/-- The format of a content type; what is not OpenMetrics is read as text. -/
def ofContentType : Option String → ScrapeFormat
  | some value =>
    if "application/openmetrics-text".toList.isPrefixOf value.toList then openMetrics else text
  | none => text

end ScrapeFormat

namespace Scrape

def endMarker : List Char := "# EOF".toList

/-- The lines of a text, with an empty one after a newline at its end. -/
def lines (text : List Char) : List (List Char) := text.splitOn '\n'

def isTerminated (text : List Char) : Bool :=
  match (lines text).getLast? with
  | some line => Text.trim line == endMarker
  | none => false

/-- The text without blanks at its end, then the marker on a line of its own if the format requires
one and the text does not have it, then a newline. -/
def terminate (format : ScrapeFormat) (text : String) : String :=
  let body := Text.trimEnd text.toList
  let marker := if format.requiresEnd && !isTerminated body then
      (if body.isEmpty then [] else ['\n']) ++ endMarker
    else []
  String.ofList (body ++ marker ++ ['\n'])

end Scrape

end RemoteWrite
