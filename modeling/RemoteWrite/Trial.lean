import RemoteWrite.Text.Number
import RemoteWrite.Trial.Launcher
import RemoteWrite.Trial.Record
import RemoteWrite.Trial.Settings

/-!
# Trials

A trial serves a scrape text, starts a sender against a scripted receiver and hands back what the
receiver captured.
-/

namespace RemoteWrite

structure Trial where
  text : String
  format : ScrapeFormat
  script : Script

/-- Why receiver and scrape page cannot both listen at an address, if so. After its last colon it
has a number of 16 bits. Each of the two needs a number of its own, so one that is given is in use
when the second asks for it; 0 asks for any that is free. -/
def addressFault? (address : String) : Option AddressFault :=
  match address.toList.reverse.span (· ≠ ':') with
  | (_, []) => some .noNumber
  | (digits, _) =>
    match Text.readUnsigned? UInt16.size digits.reverse with
    | none => some .badNumber
    | some number => if number = 0 then none else some .inUse

/-- The addresses at which receiver and scrape page listen, and whether senders reach them. -/
structure Sockets where
  receiver : SocketAddress
  scrape : SocketAddress
  reachable : Bool

namespace Trial
variable {α : Type}

def ending (r : Receiver) (stop : Bool) : TrialEnd :=
  if r.served then .served else if stop then .stopped else .timeUp

/-- What the sender of a trial is launched with. -/
def launchInfo (settings : Settings) (sockets : Sockets) : LaunchInfo where
  writeUrl := "http://" ++ sockets.receiver.text ++ settings.writePath
  scrapeUrl := "http://" ++ sockets.scrape.text ++ settings.scrapePath
  scrapeAddress := sockets.scrape
  version := settings.version

/-- A trial that is told to stop after launching, if `stop` says so. The carrier is that of a sender
which reaches the sockets. -/
def run (t : Trial) (settings : Settings) (sockets : Sockets) (launcher : Launcher α)
    (stop : Bool) (carrier : Carrier := .usual) : Except Error (α × TrialRecord) := do
  if let some fault := addressFault? settings.address then
    throw (.bind settings.address fault)
  let info := launchInfo settings sockets
  let connection : Connection := {
    carrier := if sockets.reachable then carrier else .nobody info.writeUrl
    path := settings.writePath
    receiver := .start settings.version t.script
    clock := 0
    sent := 0 }
  let (report, connection) ← launcher.launch info (ScrapePage.ofText t.text t.format) connection
  let r := connection.receiver
  return (report, ⟨settings.version, t.script, r.store.requests, ending r stop, r.late⟩)

end Trial

end RemoteWrite
