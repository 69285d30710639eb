import TaskShell.App.Prompt
import TaskShell.Json.Encoding
import TaskShell.Main
import TaskShell.Options.Document
import TaskShell.Path.Compare
import TaskShell.Pattern.Outline
import TaskShell.Proofs.Accounting
import TaskShell.Proofs.HereDocuments
import TaskShell.Proofs.Placeholders
import TaskShell.Queue.Basic
import TaskShell.Style.Sheet
import TaskShell.Width.Measure
import TaskShell.Words.Lexer
import TaskShell.Proofs.Truncation
import TaskShell.Proofs.Twins
import TaskShell.Proofs.Indentation
import TaskShell.Proofs.Calculators
import TaskShell.Proofs.Expansion
import TaskShell.Proofs.PlainArithmetic
import TaskShell.Proofs.Highlighting
import TaskShell.Proofs.Defining
import TaskShell.Proofs.Occurrences
import TaskShell.Proofs.Excerpts
import TaskShell.Proofs.NormalForms
import TaskShell.Proofs.ColourNumbers
import TaskShell.Proofs.Interleaving
import TaskShell.Proofs.Fallbacks
import TaskShell.Proofs.Overwriting
import TaskShell.Proofs.Finding
import TaskShell.Proofs.Breaking
