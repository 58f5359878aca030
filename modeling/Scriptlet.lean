import Scriptlet.Main
import Scriptlet.Trace
import Scriptlet.Tree.Equality
import Scriptlet.Tree.Outline
import Scriptlet.Tree.Render
import Scriptlet.Proofs.Completeness
import Scriptlet.Proofs.Marks
import Scriptlet.Proofs.Soundness
import Scriptlet.Proofs.Nodes
import Scriptlet.Proofs.Words
import Scriptlet.Proofs.Spelling
import Scriptlet.Proofs.RoundTrip
import Scriptlet.Proofs.Faithful
import Scriptlet.Proofs.Balance
import Scriptlet.Proofs.Success
import Scriptlet.Proofs.Synchrony
import Scriptlet.Proofs.Landmarks
import Scriptlet.Proofs.Order
import Scriptlet.Proofs.Indices
import Scriptlet.Proofs.Readings
import Scriptlet.Proofs.Consistency
import Scriptlet.Proofs.Dialogue
import Scriptlet.Proofs.Spacing
import Scriptlet.Proofs.Walks
import Scriptlet.Proofs.Descent
import Scriptlet.Proofs.Reports
import Scriptlet.Proofs.Legibility
import Scriptlet.Proofs.Faults
import Scriptlet.Proofs.Numerals
import Scriptlet.Proofs.Insertion
import Scriptlet.Proofs.FrontEnds
import Scriptlet.Proofs.Accounts
import Scriptlet.Proofs.Listings
import Scriptlet.Proofs.Visits
import Scriptlet.Proofs.Scanner
import Scriptlet.Proofs.Window
