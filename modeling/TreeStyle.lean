import TreeStyle.Main
import TreeStyle.Session
import TreeStyle.Stylesheet.Lexer
import TreeStyle.Tree.Handle
import TreeStyle.Log.Logger
import TreeStyle.Proofs.Grammar.RoundTrip
import TreeStyle.Proofs.Matching.Memo
import TreeStyle.Proofs.Matching.Witness
import TreeStyle.Proofs.Grammar.Concatenation
import TreeStyle.Proofs.Grammar.Lookahead
import TreeStyle.Proofs.Grammar.Validity
import TreeStyle.Proofs.Styling.Cascade
import TreeStyle.Proofs.Tree.Adoption
import TreeStyle.Proofs.Styling.Locality
import TreeStyle.Proofs.Styling.Coherence
import TreeStyle.Proofs.Styling.Sessions
import TreeStyle.Proofs.Grammar.Runs
import TreeStyle.Proofs.Grammar.FirstError
import TreeStyle.Proofs.Grammar.Completion
import TreeStyle.Proofs.Grammar.Incomplete
import TreeStyle.Proofs.Styling.Resemblance
import TreeStyle.Proofs.Tree.Planting
import TreeStyle.Proofs.Styling.LeftContext
import TreeStyle.Proofs.Styling.Adapters
import TreeStyle.Proofs.Tree.Traversal
import TreeStyle.Proofs.Tree.Heaps
import TreeStyle.Proofs.Tree.Preorder
import TreeStyle.Proofs.Tree.Duality
import TreeStyle.Proofs.Styling.WholeTree
import TreeStyle.Proofs.Grammar.FieldTexts
import TreeStyle.Proofs.Styling.Entries
import TreeStyle.Proofs.Grammar.LineEndings
import TreeStyle.Proofs.Styling.SelectorLists
import TreeStyle.Proofs.Grammar.ErrorPlaces
import TreeStyle.Proofs.Grammar.Layout
import TreeStyle.Proofs.Matching.Relaxation
import TreeStyle.Proofs.Styling.Stability
import TreeStyle.Proofs.Values.ColorLiterals
import TreeStyle.Proofs.Values.AttributeLists
import TreeStyle.Proofs.Lexing.StrayCharacters
import TreeStyle.Proofs.Lexing.Calls
import TreeStyle.Proofs.Styling.BaseThemes
import TreeStyle.Proofs.Tree.Descriptions
import TreeStyle.Proofs.Styling.Reporting
import TreeStyle.Proofs.Log.Periods
import TreeStyle.Proofs.Values.PrintedStyles
import TreeStyle.Proofs.CommandLine.Checks
import TreeStyle.Proofs.Grammar.Descent
