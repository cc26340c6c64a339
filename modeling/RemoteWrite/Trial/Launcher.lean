import RemoteWrite.Scrape.Page
import RemoteWrite.Sender.Relay
import RemoteWrite.Text.Quoted
import RemoteWrite.Trial.LaunchInfo

/-!
# Launchers

A launcher starts a sender and hands back what it reports. Launchers are looked up by name in a
registry, which holds each name once.
-/

namespace RemoteWrite

/-- Starts a sender, which does on its connection what it does until the trial ends, and hands
back what it reports. -/
structure Launcher (α : Type) where
  name : String
  launch : LaunchInfo → ScrapePage → Connection → Except Error (α × Connection)

def Relay.launcher {α : Type} (report : α) (backoff : Backoff) (times : List Int64) :
    Launcher α where
  name := "reference"
  launch info page connection :=
    let relay : Relay := {
      version := info.version
      backoff
      userAgent := usualUserAgent
      scrapeUrl := info.scrapeUrl }
    .ok (report, relay.run (relay.fetch connection.carrier page) times connection)

/-- Launchers by name, each name once. -/
structure Registry (α : Type) where
  launchers : List (Launcher α)

namespace Registry
variable {α : Type} (r : Registry α)

def empty : Registry α := ⟨[]⟩

def find? (name : String) : Option (Launcher α) := r.launchers.find? (·.name = name)

/-- Adds a launcher under its name, in place of the one that had it. -/
def insert (l : Launcher α) : Registry α := ⟨r.launchers.filter (·.name ≠ l.name) ++ [l]⟩

def get (name : String) : Except Error (Launcher α) :=
  match r.find? name with
  | some l => .ok l
  | none => .error (.unknownLauncher name)

def names : List String := Text.sort (r.launchers.map (·.name))

def text : String :=
  "LauncherRegistry \x7b launchers: " ++ Text.bracketed (r.names.map Text.quote) ++ " \x7d"

end Registry

end RemoteWrite
