import RemoteWrite.Http.Request
import RemoteWrite.Http.Response
import RemoteWrite.Scrape.Format
import RemoteWrite.Scrape.Route

/-!
# Scrape pages

A page is one scrape text, served on one route to GET and HEAD.
-/

namespace RemoteWrite

structure ScrapePage where
  body : String
  format : ScrapeFormat
  deriving DecidableEq, Inhabited

namespace ScrapePage

/-- The page of a text, terminated as its format requires. -/
def ofText (text : String) (format : ScrapeFormat) : ScrapePage :=
  ⟨Scrape.terminate format text, format⟩

def document (p : ScrapePage) : Response :=
  ⟨200, Headers.empty.insert "content-type" (Text.bytes p.format.contentType), p.body⟩

/-- The response of a page that is served on `route`. -/
def answer (p : ScrapePage) (route method target : String) : Response :=
  if !isOnRoute route (targetPath target) then ⟨404, .empty, ""⟩
  else if method = "GET" ∨ method = "HEAD" then p.document.toMethod method
  else ⟨405, .empty, ""⟩

end ScrapePage

end RemoteWrite
