import Lox.Main
import Lox.Proofs.Machine.Fuel
import Lox.Proofs.Simulation.Logic
import Lox.Proofs.Store.Frame
import Lox.Proofs.Simulation.Evaluate
import Lox.Proofs.Simulation.EmptyScopes
import Lox.Proofs.Syntax.Rules
import Lox.Proofs.Simulation.Desugar
import Lox.Proofs.Grammar.Basic
import Lox.Proofs.Grammar.Levels
import Lox.Proofs.Grammar.Expressions
import Lox.Proofs.Grammar.Parts
import Lox.Proofs.Grammar.Statements
import Lox.Proofs.Grammar.Programs
import Lox.Proofs.Scan.Lines
import Lox.Proofs.Relabel.Basic
import Lox.Proofs.Relabel.Store
import Lox.Proofs.Relabel.Evaluate
import Lox.Proofs.Machine.Along
import Lox.Proofs.Relabel.Grammar
import Lox.Proofs.Relabel.Places
import Lox.Proofs.Scan.Items
import Lox.Proofs.Session.Source
import Lox.Proofs.Machine.Sequence
import Lox.Proofs.Session.Events
import Lox.Proofs.Session.History
import Lox.Proofs.Session.Append
import Lox.Proofs.Machine.Current
import Lox.Proofs.Syntax.Origin
import Lox.Proofs.Confinement.Grant
import Lox.Proofs.Confinement.Evaluate
import Lox.Proofs.Confinement.Encapsulation
import Lox.Proofs.Scan.Reference
import Lox.Proofs.Scan.Munch
import Lox.Proofs.Scan.Spans
import Lox.Proofs.Session.Faults
import Lox.Proofs.Syntax.Progress
import Lox.Proofs.Syntax.Cursor
import Lox.Proofs.Unparse.Write
import Lox.Proofs.Unparse.Genuine
import Lox.Proofs.Unparse.Read
import Lox.Proofs.Unparse.RoundTrip
import Lox.Proofs.Relabel.Parser
import Lox.Proofs.Relabel.Names
import Lox.Proofs.Descent.Agreement
import Lox.Proofs.Recovery.Local
import Lox.Proofs.Machine.Throughout
import Lox.Proofs.Session.Layout
import Lox.Proofs.Simulation.InBlock
import Lox.Proofs.Session.InBlock
import Lox.Proofs.Store.Merge
import Lox.Proofs.Recovery.Semicolon
import Lox.Proofs.Machine.Names
import Lox.Proofs.Store.Owner
import Lox.Proofs.Scan.Cursor
import Lox.Proofs.Scan.Positions
import Lox.Proofs.Scan.Written
import Lox.Proofs.Scan.Blanked
import Lox.Proofs.Scan.LineEnds
import Lox.Proofs.Decimal.Double
import Lox.Proofs.Decimal.Spelling
import Lox.Proofs.Listing.Form
import Lox.Proofs.Scan.Lexemes
import Lox.Proofs.Listing.Tree
import Lox.Proofs.Listing.Unique
import Lox.Proofs.Listing.Programs
import Lox.Proofs.Confinement.Moments
import Lox.Proofs.Session.Clockless
