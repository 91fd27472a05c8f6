import Newsfeed.App
import Newsfeed.Config.File
import Newsfeed.Proofs.Counters.Overview
import Newsfeed.Proofs.Search.FreeText
import Newsfeed.Proofs.Search.Joined
import Newsfeed.Proofs.Sql.Shape
import Newsfeed.Sql.Function
import Newsfeed.Sql.Listing
import Newsfeed.Store.Write
import Newsfeed.Wire.Request
import Newsfeed.Machine.Request
import Newsfeed.Machine.Time
import Newsfeed.Proofs.Store.Apart
import Newsfeed.Proofs.Listing.Apart
import Newsfeed.Proofs.Reading.Lexeme
import Newsfeed.Proofs.Reading.Chain
import Newsfeed.Proofs.Sql.Grammar
import Newsfeed.Proofs.FullText.Written
import Newsfeed.Proofs.Sql.Evaluation
import Newsfeed.Proofs.FullText.Spelling
import Newsfeed.Proofs.Sql.Rendered
import Newsfeed.Proofs.Sql.Faithful
import Newsfeed.Proofs.Sql.Listing
import Newsfeed.Proofs.Store.Indexed
import Newsfeed.Proofs.Listing.Guarded
import Newsfeed.Proofs.Listing.Aging
import Newsfeed.Proofs.Counters.OthersLabels
import Newsfeed.Proofs.Counters.Special
import Newsfeed.Proofs.Counters.Totals
import Newsfeed.Proofs.Store.Refused
import Newsfeed.Proofs.Listing.QueryErrors
import Newsfeed.Proofs.Store.Ancestry
import Newsfeed.Proofs.Counters.Ancestors
import Newsfeed.Proofs.Store.Caches
import Newsfeed.Proofs.Listing.Findable
import Newsfeed.Proofs.Counters.Subtotals
import Newsfeed.Proofs.FullText.Grammar
import Newsfeed.Proofs.FullText.Printed
import Newsfeed.Proofs.FullText.Neighbours
import Newsfeed.Proofs.Search.Complement
import Newsfeed.Proofs.Predicate.Negation
import Newsfeed.Proofs.Listing.Simplified
import Newsfeed.Proofs.Sql.Literal
import Newsfeed.Proofs.Search.Labelled
import Newsfeed.Proofs.Listing.Grouped
import Newsfeed.Proofs.Text.Decimal
import Newsfeed.Proofs.Time.ReadBack
import Newsfeed.Proofs.Time.Weeks
import Newsfeed.Proofs.Listing.Weeks
import Newsfeed.Proofs.Time.Windows
import Newsfeed.Proofs.Predicate.Windows
import Newsfeed.Proofs.Listing.FeedRuns
import Newsfeed.Proofs.Scan.Purposes
import Newsfeed.Proofs.Listing.Distinct
import Newsfeed.Proofs.Store.Times
import Newsfeed.Proofs.Time.Offsets
import Newsfeed.Proofs.Time.Days
import Newsfeed.Proofs.Time.DayStart
import Newsfeed.Proofs.Time.Spans
import Newsfeed.Proofs.Listing.Cancelled
import Newsfeed.Proofs.Predicate.Places
import Newsfeed.Proofs.Preferences
import Newsfeed.Proofs.Search.Quoted
import Newsfeed.Proofs.Sql.FullText
import Newsfeed.Proofs.Store.Preferences
import Newsfeed.Proofs.Time.Rfc3339
import Newsfeed.Proofs.Wire.Request
import Newsfeed.Proofs.FullText.Markup
