import TaggedText.Main
import TaggedText.Cursor.Operation
import TaggedText.Element.Copy
import TaggedText.Proofs.CommandAgreement
import TaggedText.Proofs.TrimmedBuilding
import TaggedText.Proofs.DepthLimit
import TaggedText.Proofs.MissingClosings
import TaggedText.Proofs.UnreadableText
import TaggedText.Proofs.BalancedRuns
import TaggedText.Proofs.StreamItems
import TaggedText.Proofs.RefusedTags
import TaggedText.Proofs.WritingRoom
import TaggedText.Proofs.TagTokens
import TaggedText.Proofs.Fillers
import TaggedText.Proofs.TextContent
import TaggedText.Proofs.CursorRuns
import TaggedText.Proofs.Copying
import TaggedText.Proofs.DocumentOrder
import TaggedText.Proofs.EscapedDelimiters
import TaggedText.Proofs.JsonText
import TaggedText.Proofs.Listings
import TaggedText.Proofs.ReadingLog
import TaggedText.Proofs.Splitting
import TaggedText.Proofs.LocationOrder
import TaggedText.Proofs.BetweenTokens
