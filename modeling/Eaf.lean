import Eaf.Main
import Eaf.Document.Growth
import Eaf.Program.Workspace
import Eaf.Proofs.Absorption
import Eaf.Proofs.Ancestry
import Eaf.Proofs.CleanReport
import Eaf.Proofs.Descent
import Eaf.Proofs.Extension
import Eaf.Proofs.History
import Eaf.Proofs.KeptTimes
import Eaf.Proofs.Lead
import Eaf.Proofs.Normalized
import Eaf.Proofs.OwnFile
import Eaf.Proofs.Forest
import Eaf.Proofs.Strays
import Eaf.Proofs.Consecutive
import Eaf.Proofs.Walk
import Eaf.Proofs.Findings
import Eaf.Proofs.Discovery
import Eaf.Proofs.Delivery
import Eaf.Proofs.Unwritten
import Eaf.Proofs.Display
import Eaf.Proofs.Thousandths
import Eaf.Proofs.Seconds
import Eaf.Proofs.Resync
import Eaf.Proofs.Search
import Eaf.Proofs.Declared
import Eaf.Proofs.Finite
import Eaf.Proofs.Accepted
import Eaf.Proofs.Accounted
import Eaf.Proofs.Numbered
