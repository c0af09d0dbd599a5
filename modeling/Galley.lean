import Galley.Main
import Galley.Proofs.Document.Lines
import Galley.Proofs.Document.Substitution
import Galley.Proofs.Render.HeadingId
import Galley.Proofs.Render.Nesting
import Galley.Proofs.Render.Payload
import Galley.Proofs.Render.Frame
import Galley.Proofs.Render.Notes
import Galley.Proofs.Render.Capture
import Galley.Proofs.Render.ShownText
import Galley.Proofs.Html.BackLink
import Galley.Proofs.Render.BackLink
import Galley.Proofs.Document.BackReference
import Galley.Proofs.Markdown.Place
import Galley.Proofs.Render.Emission
import Galley.Proofs.Html.Cut
import Galley.Proofs.Document.Slides
import Galley.Proofs.Toc.Link
import Galley.Proofs.Render.HeadingLink
import Galley.Proofs.Render.NoteTag
import Galley.Proofs.Render.NoteLink
import Galley.Proofs.Html.VisibleText
import Galley.Proofs.Render.VisibleText
import Galley.Proofs.Html.Template
import Galley.Proofs.Render.LineAttribute
import Galley.Proofs.Html.Replacement
import Galley.Proofs.Render.Collected
import Galley.Proofs.Render.Placeholder
import Galley.Proofs.Command.Report
import Galley.Proofs.Document.FrontMatter
import Galley.Proofs.Document.InsertedMarker
import Galley.Proofs.Document.MatterBlock
import Galley.Proofs.Render.Reuse
import Galley.Proofs.Toc.Outline
import Galley.Proofs.Config.Load
import Galley.Proofs.Document.ShownAttribute
import Galley.Proofs.Document.LiteralDollar
import Galley.Proofs.Document.LinkLine
import Galley.Proofs.Document.LinkTwice
import Galley.Proofs.Render.HeadingContent
import Galley.Proofs.Document.TokenScan
import Galley.Proofs.Document.TagList
import Galley.Proofs.Render.ImageContent
import Galley.Proofs.Document.Presentation
import Galley.Proofs.Toc.Rewriting
import Galley.Proofs.Toc.MarkerTitle
import Galley.Proofs.Fence
import Galley.Proofs.Render.NoteTables
import Galley.Proofs.Render.NoteId
import Galley.Proofs.Config.Expansion
import Galley.Proofs.Document.LineEnding
import Galley.Proofs.Document.Dashes
import Galley.Proofs.Slug
import Galley.Proofs.LineIndex.Search
import Galley.Proofs.Html.Inert
