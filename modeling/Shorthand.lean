import Shorthand.Cursor
import Shorthand.Cursor.Scanning
import Shorthand.Main
import Shorthand.Outline
import Shorthand.Proofs.Fragment.Outside
import Shorthand.Proofs.Fragment.Sealed
import Shorthand.Proofs.Tree
import Shorthand.Proofs.Tree.Parents
import Shorthand.Proofs.Assembly.Ancestors
import Shorthand.Proofs.Assembly.Hosts
import Shorthand.Proofs.Assembly.Budget
import Shorthand.Proofs.Assembly.Plan
import Shorthand.Proofs.Assembly.Refinement
import Shorthand.Proofs.Fragment.Pieces
import Shorthand.Proofs.Token.Writing
import Shorthand.Proofs.Token.Reading
import Shorthand.Proofs.Element.AttributeList
import Shorthand.Proofs.Outline.Writing
import Shorthand.Proofs.Outline.Elements
import Shorthand.Proofs.Outline.RoundTrip
import Shorthand.Proofs.Markup.Reference
import Shorthand.Proofs.Text.Lines
import Shorthand.Proofs.Markup.Lines
import Shorthand.Proofs.Markup.Verbatim
import Shorthand.Proofs.Markup.Reading
import Shorthand.Proofs.Token.Spelling
import Shorthand.Proofs.Settings.Precedence
import Shorthand.Proofs.Assembly.Growth
import Shorthand.Proofs.LineStream.Lines
import Shorthand.Proofs.LineStream.Parts
import Shorthand.Proofs.LineStream.Echo
import Shorthand.Proofs.Element.Characters
import Shorthand.Proofs.Token.Characters
import Shorthand.Proofs.Assembly.Copies
import Shorthand.Proofs.Expansion.Characters
import Shorthand.Proofs.Markup.Settled
import Shorthand.Proofs.LineStream.Again
import Shorthand.Proofs.Expansion.Rendering
import Shorthand.Proofs.Session.History
import Shorthand.Proofs.Session.Navigation
import Shorthand.Proofs.Text.LetterCase
import Shorthand.Proofs.Token.LetterCase
import Shorthand.Proofs.Expansion.LetterCase
import Shorthand.Proofs.Toml.Quoting
import Shorthand.Proofs.Toml.Reading
import Shorthand.Proofs.Settings.RoundTrip
import Shorthand.Proofs.Assembly.Counters
import Shorthand.Proofs.Element.AttributeForms
import Shorthand.Proofs.Fragment.Offsets
import Shorthand.Proofs.Group.Matching
import Shorthand.Proofs.Cursor.Enclosed
import Shorthand.Proofs.Fragment.Dividing
import Shorthand.Proofs.Token.Offsets
import Shorthand.Proofs.Token.Stars
import Shorthand.Proofs.Token.Count
import Shorthand.Token.Rewriting
import Shorthand.Proofs.Token.Renaming
import Shorthand.Proofs.Token.Rewriting
import Shorthand.Proofs.Alias.Merging
import Shorthand.Proofs.Alias.Listing
import Shorthand.Proofs.Rules.Contents
import Shorthand.Proofs.Group.Outside
import Shorthand.Proofs.Group.Enclosed
import Shorthand.Proofs.Rules.Spaces
import Shorthand.Proofs.Assembly.Invariant
import Shorthand.Proofs.Element.Assignments
import Shorthand.Proofs.Assembly.Names
import Shorthand.Proofs.Settings.PatternOrder
