import Provenance.Machine
import Provenance.Main
import Provenance.Proofs.Graph.Cycle
import Provenance.Proofs.Graph.Stages
import Provenance.Proofs.Resolution.Accounting
import Provenance.Proofs.Resolution.HeaderFallback
import Provenance.Proofs.Resolution.MnemonicFilter
import Provenance.Proofs.Resolution.MoreFiles
import Provenance.Proofs.Workspace.KeepGoing
import Provenance.Proofs.Workspace.Reordering
import Provenance.Proofs.Graph.History
import Provenance.Proofs.Workspace.Placeholders
import Provenance.Proofs.Workspace.Respelling
import Provenance.Proofs.Graph.Agreement
import Provenance.Proofs.Resolution.Views
import Provenance.Proofs.Workspace.Insertion
import Provenance.Proofs.Resolution.NeededActions
import Provenance.Proofs.Report.Listing
import Provenance.Proofs.Machine.Output
import Provenance.Proofs.Graph.Expansion
import Provenance.Proofs.Report.Json
import Provenance.Proofs.Snapshot.RoundTrip
import Provenance.Proofs.Graph.Collection
import Provenance.Proofs.Matcher.Calls
import Provenance.Proofs.Workspace.Building
import Provenance.Proofs.Path.Normalisation
import Provenance.Proofs.Source.Place
import Provenance.Proofs.Source.Span
