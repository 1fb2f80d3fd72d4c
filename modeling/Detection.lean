import Detection.Main
import Detection.Proofs.Builder.Answers
import Detection.Proofs.Builder.Stepwise
import Detection.Proofs.Builder.Whole
import Detection.Proofs.Event.Carried
import Detection.Proofs.Json.Read
import Detection.Proofs.Line.ReadBack
import Detection.Proofs.Loader.Issues
import Detection.Proofs.Loader.Aligned
import Detection.Proofs.Text.Utf8
import Detection.Proofs.Loader.Surrogates
import Detection.Proofs.Files.Frame
import Detection.Proofs.Program.Frame
import Detection.Proofs.Program.Rendering
import Detection.Proofs.Program.Launch
import Detection.Proofs.Program.Output
import Detection.Proofs.Settings.InForce
import Detection.Proofs.Program.Exit
import Detection.Proofs.Address.ReadBack
import Detection.Proofs.Loader.Direct
import Detection.Proofs.Loader.Retold
import Detection.Proofs.Text.Quoted
import Detection.Proofs.Json.Rendered
import Detection.Proofs.CommandLine.Flags
import Detection.Proofs.Program.Effect
import Detection.Proofs.Program.Presentation
import Detection.Proofs.Text.Lossy
import Detection.Proofs.Country.ReadBack
import Detection.Proofs.Loader.Spellings
import Detection.Proofs.Loader.Payloads
import Detection.Proofs.Time.Shown
import Detection.Proofs.Address.Canonical
import Detection.Proofs.Event.Times
import Detection.Proofs.Line.Header
import Detection.Proofs.Settings.Paths
import Detection.Proofs.Text.Controls
