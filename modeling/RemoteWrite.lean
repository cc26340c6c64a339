import RemoteWrite.Proofs.Http.ContentType
import RemoteWrite.Proofs.Message.Parts
import RemoteWrite.Proofs.Rules.Backoff
import RemoteWrite.Proofs.Rules.Exemplars
import RemoteWrite.Proofs.Rules.Families
import RemoteWrite.Proofs.Rules.Names
import RemoteWrite.Proofs.Rules.References
import RemoteWrite.Proofs.Scrape.Conformance
import RemoteWrite.Proofs.Scrape.Escapes
import RemoteWrite.Proofs.Scrape.Grouping
import RemoteWrite.Proofs.Scrape.Remark
import RemoteWrite.Proofs.Scrape.SampleText
import RemoteWrite.Proofs.Sender.Round
import RemoteWrite.Proofs.Sender.Words
import RemoteWrite.Proofs.Series.Families
import RemoteWrite.Proofs.Series.Rebuilding
import RemoteWrite.Proofs.Series.Repeats
import RemoteWrite.Proofs.Trial.LaunchInfo
import RemoteWrite.Report.Pretty
