import LoxTokenizer.Files.Tree
import LoxTokenizer.Main
import LoxTokenizer.Proofs.Cursor.Session
import LoxTokenizer.Proofs.Machine.Bounds
import LoxTokenizer.Proofs.Machine.Records
import LoxTokenizer.Proofs.Manifest.Discovery
import LoxTokenizer.Proofs.Manifest.Documented
import LoxTokenizer.Proofs.Output.EndMarker
import LoxTokenizer.Proofs.Output.Lossless
import LoxTokenizer.Proofs.Output.Records
import LoxTokenizer.Proofs.Output.Truncation
import LoxTokenizer.Proofs.Program.Arguments
import LoxTokenizer.Proofs.Program.Governing
import LoxTokenizer.Proofs.Prompt.Agreement
import LoxTokenizer.Proofs.Report.Place
import LoxTokenizer.Proofs.Scan.CarriageReturn
import LoxTokenizer.Proofs.Scan.Extension
import LoxTokenizer.Proofs.Scan.Gluing
import LoxTokenizer.Proofs.Scan.Layout
import LoxTokenizer.Proofs.Scan.Numbers
import LoxTokenizer.Scan.Log
